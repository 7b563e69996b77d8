import RtmpServer.Http.AcceptedDelete

/-!
# Deletes and replacements

A delete is accepted for one row, but only its begin-delete names that row: the finalize and the
plain enable and disable name the id, which a replacement may have by then. Here any number of
deletes run on any nodes while others write what they like, under the conditions of `fencedOp`. The
begin-delete needs none of them.
-/

namespace RtmpServer

open List Lib.Table Lib.Replay
open Option hiding all_eq_true any_eq_true

variable {own : StreamIdentity} {phase : DeletePhase} {next : DeletePhase × MarkerChange}
  {row : DbLookup StreamRow} {cmd : ClusterCommand}

def DeletePhase.isEnded : DeletePhase → Bool
  | .ended _ => true
  | _ => false

/-- From here on the delete may send a plain enable or disable without looking at the row again. -/
def DeletePhase.writingBack : DeletePhase → Bool
  | .countSessions | .finalize | .rollbackRead | .rollbackEnable => true
  | .keepReadEnabled | .keepReadPending | .keepDisable => true
  | _ => false

theorem DeletePhase.isEnded_of_command (hc : phase.command own = some cmd) :
    phase.isEnded = false := by
  cases phase <;> first | rfl | cases hc

theorem DeletePhase.isEnded_of_afterRead (hn : phase.afterRead own row = some next) :
    phase.isEnded = false := by
  cases phase <;> first | rfl | cases hn

theorem DeletePhase.of_writingBack_afterCall {result : Except CoordError Unit}
    (hc : phase.command own = some cmd) (h : (phase.afterCall result).1.writingBack) :
    phase.writingBack ∨ phase = .begin ∧ result = .ok () := by
  cases phase with
  | finalize | rollbackEnable | keepDisable => exact .inl rfl
  | begin =>
    rcases result with (_ | _ | _ | _ | mayHaveCommitted) | _
    case ok => exact .inr ⟨rfl, rfl⟩
    all_goals first | cases h | cases mayHaveCommitted <;> cases h
  | retryBegin attempt | keepBegin =>
    rcases result with (_ | _ | _ | _ | _) | _ <;> cases h
  | retryFinalize attempt =>
    rcases result with (_ | _ | _ | _ | _) | _
    all_goals
      simp only [afterCall] at h
      first | cases h | split_ifs at h <;> cases h
  | _ => cases hc

theorem DeletePhase.of_writingBack_afterRead (hn : phase.afterRead own row = some next)
    (h : next.1.writingBack) :
    phase.writingBack ∨ phase = .keepReadToken ∧
      ∃ r, row = .ok r ∧ r.createdAt = own.createdAt ∧ r.deleteToken = own.deleteToken := by
  cases phase with
  | rollbackRead | keepReadEnabled | keepReadPending => exact .inl rfl
  | keepReadToken =>
    have hd : next.1.deciding = true := by
      cases row with
      | ok r =>
        simp only [afterRead] at hn
        split_ifs at hn <;>
        · cases hn
          exact h
      | _ =>
        cases hn
        exact h
    rcases of_deciding_afterRead hn hd with hp | hr
    · cases hp
    · exact .inr ⟨rfl, hr⟩
  | retryRead attempt =>
    cases row with
    | ok r =>
      simp only [afterRead] at hn
      split_ifs at hn <;>
      · cases hn
        cases h
    | _ =>
      cases hn
      cases h
  | _ => cases hn

namespace Db

variable {db : Db}
variable {own : StreamIdentity}

theorem row_before_write {phase : DeletePhase} {cmd : ClusterCommand}
    (hc : phase.command own = some cmd) {r : StreamRow}
    (hr : r ∈ (applyCommand db cmd).db.streams) :
    ∃ a ∈ db.streams, a.identity = r.identity ∧ (r.pendingDelete →
      a.pendingDelete ∨ r.identity = own ∧
        cmd = .beginDeleteStream own.id (some own.createdAt) (some own.deleteToken)) := by
  cases phase with
  | begin | retryBegin _ | keepBegin =>
    cases hc
    have hdb : (applyCommand db (.beginDeleteStream own.id (some own.createdAt)
      (some own.deleteToken))).db = _ := beginDeleteStream_db 0 db _ _ _
    rw [hdb, mem_setStreamFlags] at hr
    rcases hr with ⟨a, ha, hp, rfl⟩ | ⟨hmem, -⟩
    · refine ⟨a, ha, rfl, fun _ => .inr ⟨?_, rfl⟩⟩
      simp only [disableMatches, decide_eq_true_eq] at hp
      show StreamIdentity.mk a.id a.createdAt a.deleteToken = own
      rw [hp.1, hp.2.1, hp.2.2]
    · exact ⟨r, hmem, rfl, .inl⟩
  | finalize | retryFinalize _ =>
    cases hc
    rw [streams_finalizeDeleteStream, mem_deleteWhere] at hr
    exact ⟨r, hr.1, rfl, .inl⟩
  | rollbackEnable | keepDisable =>
    cases hc
    have hdb := fun enabled => setStreamEnabled_db 0 db own.id enabled
    simp only [applyNormal] at hdb
    rw [hdb, mem_setStreamFlags] at hr
    rcases hr with ⟨a, ha, -, rfl⟩ | ⟨hmem, -⟩
    · exact ⟨a, ha, rfl, fun hp => by cases hp⟩
    · exact ⟨r, hmem, rfl, .inl⟩
  | _ => cases hc

theorem exists_of_begin_ok (h : (applyCommand db (.beginDeleteStream own.id (some own.createdAt)
      (some own.deleteToken))).response.intoCoordResult = .ok ()) :
    ∃ a ∈ db.streams, a.identity = own := by
  simp only [applyCommand, streamDisableExpecting] at h
  split_ifs at h with hany hid
  · obtain ⟨a, ha, hp⟩ := any_eq_true.1 hany
    simp only [disableMatches, decide_eq_true_eq] at hp
    refine ⟨a, ha, ?_⟩
    rw [StreamRow.identity, hp.1, hp.2.1, hp.2.2]
  · cases h
  · cases h

end Db

namespace DeleteSystem

variable {d : StreamDelete} {i : Nat} {cmd : ClusterCommand} {w : Nat × ClusterCommand}
  {r : StreamRow} {j : Nat}

/-- The delete has not ended, or one of its writes is still on its way. -/
def underWay (s : DeleteSystem) (i : Nat) : Bool :=
  (s.deletes[i]?.any fun d => !d.phase.isEnded) || s.inFlight.any fun w => w.1 = i

def writingBack (s : DeleteSystem) (i : Nat) : Bool :=
  (s.deletes[i]?.any fun d => d.phase.writingBack) ||
    s.inFlight.any fun w => w.1 = i && w.2.isSetStreamEnabled

def allDeletes (s : DeleteSystem) (p : Nat → StreamDelete → Bool) : Bool :=
  (range s.deletes.length).all fun j => s.deletes[j]?.all (p j)

/-- A begin-delete that takes effect does so while no delete of another row of the id is under
way. -/
def beginsAlone (s : DeleteSystem) (op : DeleteOp) : Bool :=
  match s.takesEffect op with
  | some (i, .beginDeleteStream _ _ _) =>
    s.deletes[i]?.all fun d => s.allDeletes fun j e =>
      decide (e.target.id = d.target.id → s.underWay j = true → e.target = d.target)
  | _ => true

def bound (s : DeleteSystem) (j : Nat) (d : StreamDelete) (r : StreamRow) : Prop :=
  r.id = d.target.id → r.pendingDelete = true ∧ s.underWay j = true ∨ s.writingBack j = true →
    r.identity = d.target

instance (s : DeleteSystem) (j : Nat) (d : StreamDelete) (r : StreamRow) :
    Decidable (s.bound j d r) :=
  inferInstanceAs (Decidable (_ → _ → _))

/-- A delete is taken up, or a row marked, only while no delete of another row of the id overlaps
with it; nobody else interferes; the read before the disable is up to date. -/
def fencedOp (s : DeleteSystem) : DeleteOp → Bool
  | .request node bearerOk id readFails =>
    match s.handleStreamDelete node bearerOk id readFails with
    | .inl _ => true
    | .inr target => s.db.streams.all fun r =>
      decide (r.id = target.id → r.pendingDelete = true → r.identity = target)
  | .call i outcome => s.beginsAlone (.call i outcome)
  | .commit k => s.beginsAlone (.commit k)
  | .read i _ => s.deletes[i]?.all fun d => d.phase ≠ .keepReadToken ||
    (s.copies d.node).streamRow d.target.id = s.db.streamRow d.target.id
  | .command index cmd => s.allDeletes fun j d =>
    (applyNormal index s.db cmd).db.streams.all fun r => decide (s.bound j d r)
  | _ => true

variable {s s' : DeleteSystem} {op : DeleteOp}

theorem allDeletes_iff {p : Nat → StreamDelete → Bool} :
    s.allDeletes p ↔ ∀ (j : Nat) (d : StreamDelete), s.deletes[j]? = some d → p j d = true := by
  simp only [allDeletes, all_eq_true, mem_range]
  constructor
  · intro h j d hj
    have hp := h j (List.getElem?_eq_some_iff.1 hj).1
    rwa [hj, all_some] at hp
  · intro h j _
    cases hj : s.deletes[j]? with
    | none => rfl
    | some d => exact h j d hj

/-- The invariant: every row a delete may still touch by its id is the one it was accepted for. -/
structure Fenced (s : DeleteSystem) : Prop where
  sound : s.Sound
  owned : s.Owned
  bound : ∀ (j : Nat) (d : StreamDelete), s.deletes[j]? = some d → ∀ r ∈ s.db.streams, s.bound j d r

theorem underWay_of_inFlight (h : w ∈ s.inFlight) : s.underWay w.1 = true := by
  rw [underWay, Bool.or_eq_true]
  exact .inr (any_eq_true.2 ⟨w, h, by simp⟩)

theorem underWay_of_phase (hi : s.deletes[i]? = some d) (h : d.phase.isEnded = false) :
    s.underWay i = true := by
  simp [underWay, hi, h]

theorem writingBack_of_phase (hi : s.deletes[i]? = some d) (h : d.phase.writingBack) :
    s.writingBack i = true := by
  simp [writingBack, hi, h]

theorem writingBack_of_command (hi : s.deletes[i]? = some d)
    (hc : d.phase.command d.target = some cmd) (hset : cmd.isSetStreamEnabled) :
    s.writingBack i = true := by
  refine writingBack_of_phase hi ?_
  rcases DeletePhase.of_isSetStreamEnabled hc hset with hp | hp <;> rw [hp] <;> rfl

theorem writingBack_of_inFlight (h : w ∈ s.inFlight) (hset : w.2.isSetStreamEnabled) :
    s.writingBack w.1 = true := by
  rw [writingBack, Bool.or_eq_true]
  exact .inr (any_eq_true.2 ⟨w, h, by simp [hset]⟩)

theorem underWay_mono (hd : s'.deletes[j]? = s.deletes[j]?)
    (hw : ∀ w ∈ s'.inFlight, w.1 = j → w ∈ s.inFlight) (h : s'.underWay j) :
    s.underWay j = true := by
  simp only [underWay, hd, Bool.or_eq_true, any_eq_true, decide_eq_true_eq] at h ⊢
  rcases h with h | ⟨w, hmem, hwj⟩
  · exact .inl h
  · exact .inr ⟨w, hw w hmem hwj, hwj⟩

theorem writingBack_mono (hd : s'.deletes[j]? = s.deletes[j]?)
    (hw : ∀ w ∈ s'.inFlight, w.1 = j → w ∈ s.inFlight) (h : s'.writingBack j) :
    s.writingBack j = true := by
  simp only [writingBack, hd, Bool.or_eq_true, any_eq_true, Bool.and_eq_true,
    decide_eq_true_eq] at h ⊢
  rcases h with h | ⟨w, hmem, hwj, hset⟩
  · exact .inl h
  · exact .inr ⟨w, hw w hmem hwj, hwj, hset⟩

theorem Fenced.mono (h : s.Fenced) (hs : s.step op = some s') (hdb : s'.db = s.db)
    (hd : s'.deletes = s.deletes) (hw : ∀ w ∈ s'.inFlight, w ∈ s.inFlight) : s'.Fenced := by
  refine ⟨h.sound.step hs, h.owned.step hs, fun j d hj r hr hid hcond => ?_⟩
  rw [hdb] at hr
  refine h.bound j d (hd ▸ hj) r hr hid (hcond.imp (fun hp => ⟨hp.1, ?_⟩) fun hb => ?_)
  · exact underWay_mono (by rw [hd]) (fun w hmem _ => hw w hmem) hp.2
  · exact writingBack_mono (by rw [hd]) (fun w hmem _ => hw w hmem) hb

/-- A row after a write of `d` was there before, and is pending since then or by this write, which
no other delete of the id gets in the way of. -/
def Traced (s : DeleteSystem) (d : StreamDelete) (r : StreamRow) : Prop :=
  ∃ a ∈ s.db.streams, a.identity = r.identity ∧
    (r.pendingDelete → a.pendingDelete ∨ r.identity = d.target ∧
      ∀ (j : Nat) (e : StreamDelete), s.deletes[j]? = some e → e.target.id = d.target.id →
        s.underWay j → e.target = d.target)

theorem Fenced.advance (h : s.Fenced) (hs : s.step op = some s')
    (hi : s.deletes[i]? = some d) (hu : s.underWay i)
    (hd : ∀ j, j ≠ i → s'.deletes[j]? = s.deletes[j]?)
    (hw : ∀ w ∈ s'.inFlight, w.1 ≠ i → w ∈ s.inFlight)
    (hwb : s'.writingBack i → s.writingBack i ∨
      ∀ r ∈ s'.db.streams, r.id = d.target.id → r.identity = d.target)
    (hrow : ∀ r ∈ s'.db.streams, s.Traced d r) : s'.Fenced := by
  refine ⟨h.sound.step hs, h.owned.step hs, fun j e hj r hr hid hcond => ?_⟩
  obtain ⟨a, ha, hident, hpend⟩ := hrow r hr
  have haid : a.id = r.id := congrArg StreamIdentity.id hident
  by_cases hji : j = i
  · subst hji
    obtain ⟨e', he', htarget⟩ := deletes_step hs hi
    obtain rfl : e' = e := some.inj (he'.symm.trans hj)
    rw [htarget] at hid ⊢
    rcases hcond with ⟨hp, -⟩ | hb
    · rcases hpend hp with hap | ⟨hrt, -⟩
      · exact hident ▸ h.bound j d hi a ha (haid.trans hid) (.inl ⟨hap, hu⟩)
      · exact hrt
    · rcases hwb hb with hb | hall
      · exact hident ▸ h.bound j d hi a ha (haid.trans hid) (.inr hb)
      · exact hall r hr hid
  · have he := (hd j hji).symm.trans hj
    have hmem : ∀ w ∈ s'.inFlight, w.1 = j → w ∈ s.inFlight :=
      fun w hmem hwj => hw w hmem (hwj ▸ hji)
    rcases hcond with ⟨hp, hun⟩ | hb
    · have hun := underWay_mono (hd j hji) hmem hun
      rcases hpend hp with hap | ⟨hrt, hothers⟩
      · exact hident ▸ h.bound j e he a ha (haid.trans hid) (.inl ⟨hap, hun⟩)
      · have hid' : e.target.id = d.target.id := by
          rw [← hid, ← hrt]
          rfl
        rw [hrt, hothers j e he hid' hun]
    · exact hident ▸ h.bound j e he a ha (haid.trans hid)
        (.inr (writingBack_mono (hd j hji) hmem hb))

theorem of_beginsAlone {own : StreamIdentity} (h : s.beginsAlone op)
    (hw : s.takesEffect op = some (i, .beginDeleteStream own.id (some own.createdAt)
      (some own.deleteToken))) (hi : s.deletes[i]? = some d)
    (j : Nat) (e : StreamDelete) (hj : s.deletes[j]? = some e) (hid : e.target.id = d.target.id)
    (hu : s.underWay j) : e.target = d.target := by
  simp only [beginsAlone, hw, hi, all_some] at h
  have hp := allDeletes_iff.1 h j e hj
  exact of_decide_eq_true hp hid hu

theorem rows_takesEffect {phase : DeletePhase} (hok : s.beginsAlone op)
    (hw : s.takesEffect op = some (i, cmd)) (hi : s.deletes[i]? = some d)
    (hc : phase.command d.target = some cmd) (r : StreamRow)
    (hr : r ∈ (applyCommand s.db cmd).db.streams) : s.Traced d r := by
  obtain ⟨a, ha, hident, hpend⟩ := Db.row_before_write hc hr
  refine ⟨a, ha, hident, fun hp => (hpend hp).imp_right fun hb => ⟨hb.1, ?_⟩⟩
  exact of_beginsAlone hok (hb.2 ▸ hw) hi

theorem writingBack_cases (hi : s.deletes[i]? = some d) (h : s.writingBack i) :
    d.phase.writingBack ∨
      ∃ w ∈ s.inFlight, w.1 = i ∧ w.2.isSetStreamEnabled = true := by
  simpa [writingBack, hi] using h

theorem Fenced.call (h : s.Fenced) {outcome : CallOutcome}
    (hok : s.beginsAlone (.call i outcome)) (hs : s.step (.call i outcome) = some s')
    (hi : s.deletes[i]? = some d)
    (hc : d.phase.command d.target = some cmd) (hdb : s'.db = (s.send i cmd outcome).1.db)
    (hd : s'.deletes = s.deletes.set i
      { d with phase := (d.phase.afterCall (s.send i cmd outcome).2).1 })
    (hw : s'.inFlight = (s.send i cmd outcome).1.inFlight) : s'.Fenced := by
  have hsent : ∀ w ∈ s'.inFlight, w ∈ s.inFlight ∨ w = (i, cmd) := by
    intro w hmem
    rw [hw] at hmem
    cases outcome with
    | answered => exact .inl hmem
    | failed => exact .inl hmem
    | lost => exact (mem_append.1 hmem).imp_right mem_singleton.1
  have hrow : ∀ r ∈ s'.db.streams, s.Traced d r := by
    rw [hdb]
    cases outcome with
    | answered => exact rows_takesEffect hok (by simp [takesEffect, hi, hc]) hi hc
    | failed => exact fun r hr => ⟨r, hr, rfl, .inl⟩
    | lost => exact fun r hr => ⟨r, hr, rfl, .inl⟩
  refine h.advance hs hi (underWay_of_phase hi (DeletePhase.isEnded_of_command hc)) ?_ ?_ ?_ hrow
  · intro j hj
    rw [hd, getElem?_set_ne (Ne.symm hj)]
  · intro w hmem hwi
    rcases hsent w hmem with hmem | rfl
    · exact hmem
    · exact absurd rfl hwi
  · intro hb
    rcases writingBack_cases (getElem?_of_set hi hd) hb with hp | ⟨w, hmem, hwi, hset⟩
    · rcases DeletePhase.of_writingBack_afterCall hc hp with hp | ⟨hp, hresult⟩
      · exact .inl (writingBack_of_phase hi hp)
      · -- the handler's begin-delete was confirmed, so the row is the only one of the id
        refine .inr fun r hr hid => ?_
        rw [hp] at hc
        cases hc
        cases outcome with
        | answered =>
          obtain ⟨a, ha, hat⟩ := Db.exists_of_begin_ok hresult
          obtain ⟨b, hb, hident, -⟩ := hrow r hr
          have hab : a = b := by
            refine h.sound.schema.streamId.eq_of_key ha hb ?_
            show a.identity.id = b.identity.id
            rw [hat, hident]
            exact hid.symm
          rw [← hident, ← hab, hat]
        | failed => cases hresult
        | lost => cases hresult
    · rcases hsent w hmem with hmem | heq
      · exact .inl (hwi ▸ writingBack_of_inFlight hmem hset)
      · rw [heq] at hset
        exact .inl (writingBack_of_command hi hc hset)

theorem Fenced.read (h : s.Fenced) {fails : Bool}
    (hok : s.fencedOp (.read i fails)) (hs : s.step (.read i fails) = some s')
    {next : DeletePhase × MarkerChange} (hi : s.deletes[i]? = some d)
    (hn : d.phase.afterRead d.target
      (.ofOption fails ((s.copies d.node).streamRow d.target.id)) = some next)
    (hdb : s'.db = s.db) (hd : s'.deletes = s.deletes.set i { d with phase := next.1 })
    (hw : s'.inFlight = s.inFlight) : s'.Fenced := by
  refine h.advance hs hi (underWay_of_phase hi (DeletePhase.isEnded_of_afterRead hn)) ?_ ?_ ?_ ?_
  · intro j hj
    rw [hd, getElem?_set_ne (Ne.symm hj)]
  · exact fun w hmem _ => hw ▸ hmem
  · intro hb
    rcases writingBack_cases (getElem?_of_set hi hd) hb with hp | ⟨w, hmem, rfl, hset⟩
    · rcases DeletePhase.of_writingBack_afterRead hn hp with hp | ⟨hp, r, hr, hcreated, htoken⟩
      · exact .inl (writingBack_of_phase hi hp)
      · -- the copy is up to date, so the row the task saw is the one of the coordinator
        refine .inr fun q hq hid => ?_
        have hcopy : (s.copies d.node).streamRow d.target.id = s.db.streamRow d.target.id := by
          simpa [fencedOp, hi, hp] using hok
        rw [hdb] at hq
        have hl : s.db.streamRow d.target.id = some q :=
          h.sound.schema.streamId.lookup_eq_some.2 ⟨hq, hid⟩
        rw [hcopy, hl] at hr
        cases fails with
        | true => cases hr
        | false =>
          cases hr
          rw [StreamRow.identity, hid, hcreated, htoken]
    · exact .inl (writingBack_of_inFlight (hw ▸ hmem) hset)
  · rw [hdb]
    exact fun r hr => ⟨r, hr, rfl, .inl⟩

theorem Fenced.taken (h : s.Fenced) {node : UInt64} {bearerOk readFails : Bool} {id : String}
    (hok : s.fencedOp (.request node bearerOk id readFails))
    (hs : s.step (.request node bearerOk id readFails) = some s')
    (htarget : s.handleStreamDelete node bearerOk id readFails = .inr r.identity)
    (hdb : s'.db = s.db) (hd : s'.deletes = s.deletes ++ [⟨node, r.identity, .begin⟩])
    (hw : s'.inFlight = s.inFlight) : s'.Fenced := by
  refine ⟨h.sound.step hs, h.owned.step hs, fun j d hj q hq hid hcond => ?_⟩
  rw [hdb] at hq
  have hlt := (List.getElem?_eq_some_iff.1 hj).1
  rw [hd, List.length_append, List.length_singleton] at hlt
  by_cases hjlt : j < s.deletes.length
  · have hsame : s'.deletes[j]? = s.deletes[j]? := by rw [hd, getElem?_append_left hjlt]
    have hsub : ∀ w ∈ s'.inFlight, w.1 = j → w ∈ s.inFlight := fun w hmem _ => hw ▸ hmem
    refine h.bound j d (hsame ▸ hj) q hq hid (hcond.imp (fun hp => ⟨hp.1, ?_⟩) fun hb => ?_)
    · exact underWay_mono hsame hsub hp.2
    · exact writingBack_mono hsame hsub hb
  · -- the new delete has sent nothing, so only a pending row concerns it
    obtain rfl : j = s.deletes.length := by omega
    rw [hd, getElem?_append_right (Nat.le_refl _), Nat.sub_self] at hj
    obtain rfl := some.inj hj
    simp only [fencedOp, htarget, all_eq_true] at hok
    rcases hcond with ⟨hp, -⟩ | hb
    · exact of_decide_eq_true (hok q hq) hid hp
    · have hnew : s'.deletes[s.deletes.length]? = some ⟨node, r.identity, .begin⟩ := by
        rw [hd, getElem?_append_right (Nat.le_refl _), Nat.sub_self]
        rfl
      rcases writingBack_cases hnew hb with hp | ⟨w, hmem, hwi, -⟩
      · cases hp
      · obtain ⟨e, he, -⟩ := h.owned w (hw ▸ hmem)
        have := (List.getElem?_eq_some_iff.1 he).1
        omega

/-- **Every step that meets the condition keeps the deletes to their rows.** -/
theorem Fenced.step (h : s.Fenced) (hok : s.fencedOp op) (hs : s.step op = some s') :
    s'.Fenced := by
  cases step_stepped hs with
  | refused _ => exact h
  | taken r htarget _ hdb hd hw => exact h.taken hok hs htarget hdb hd hw
  | call hi hc hdb hd hw => exact h.call hok hs hi hc hdb hd hw
  | @counted i live _ d hi hp hdb hd hw =>
    refine h.advance hs hi (underWay_of_phase hi (by rw [hp]; rfl)) ?_ ?_ ?_ ?_
    · intro j hj
      rw [hd, getElem?_set_ne (Ne.symm hj)]
    · exact fun w hmem _ => hw ▸ hmem
    · exact fun _ => .inl (writingBack_of_phase hi (by rw [hp]; rfl))
    · rw [hdb]
      exact fun r hr => ⟨r, hr, rfl, .inl⟩
  | read hi hn hdb hd hw => exact h.read hok hs hi hn hdb hd hw
  | @commit k _ w hk hdb hd hw =>
    have hmem := mem_of_getElem? hk
    obtain ⟨d, hi, phase, hc⟩ := h.owned w hmem
    refine h.advance hs hi (underWay_of_inFlight hmem) (fun j _ => by rw [hd]) ?_ ?_ ?_
    · exact fun v hv _ => mem_of_mem_eraseIdx (hw ▸ hv)
    · exact fun hb => .inl (writingBack_mono (by rw [hd])
        (fun v hv _ => mem_of_mem_eraseIdx (hw ▸ hv)) hb)
    · rw [hdb]
      exact rows_takesEffect hok hk hi hc
  | drop hdb hd hw => exact h.mono hs hdb hd fun w hmem => mem_of_mem_eraseIdx (hw ▸ hmem)
  | command hdb hd hw =>
    refine ⟨h.sound.step hs, h.owned.step hs, fun j d hj r hr hid hcond => ?_⟩
    have hall := all_eq_true.1 (allDeletes_iff.1 hok j d (hd ▸ hj)) r (hdb ▸ hr)
    refine of_decide_eq_true hall hid (hcond.imp (fun hp => ⟨hp.1, ?_⟩) fun hb => ?_)
    · exact underWay_mono (by rw [hd]) (fun w hmem _ => hw ▸ hmem) hp.2
    · exact writingBack_mono (by rw [hd]) (fun w hmem _ => hw ▸ hmem) hb
  | replicate hdb hd hw => exact h.mono hs hdb hd fun w hmem => hw ▸ hmem

theorem Fenced.start {db : Db} (hdb : SchemaOk db) (copies : UInt64 → Db) :
    (DeleteSystem.start db copies).Fenced where
  sound := .start hdb copies
  owned := fun _ hw => by cases hw
  bound := fun _ _ hj => by cases hj

theorem Fenced.writer (h : s.Fenced) (hw : s.takesEffect op = some (i, cmd)) :
    ∃ d, s.deletes[i]? = some d ∧ s.underWay i ∧
      (cmd.isSetStreamEnabled → s.writingBack i) ∧
      ∃ phase : DeletePhase, phase.command d.target = some cmd := by
  rcases takesEffect_cases hw with ⟨d, hi, hc⟩ | hmem
  · exact ⟨d, hi, underWay_of_phase hi (DeletePhase.isEnded_of_command hc),
      writingBack_of_command hi hc, d.phase, hc⟩
  · obtain ⟨d, hi, phase, hc⟩ := h.owned _ hmem
    exact ⟨d, hi, underWay_of_inFlight hmem, writingBack_of_inFlight hmem, phase, hc⟩

theorem Fenced.untouched (h : s.Fenced) (hw : s.takesEffect op = some (i, cmd))
    (hi : s.deletes[i]? = some d) (hr : r ∈ s.db.streams) (hne : r.identity ≠ d.target) :
    r ∈ (applyCommand s.db cmd).db.streams := by
  obtain ⟨e, he, hu, hset, phase, hc⟩ := h.writer hw
  obtain rfl : e = d := some.inj (he.symm.trans hi)
  have hbound := h.bound i e hi r hr
  refine (Db.mem_streams_of_not_hits (DeletePhase.isDeleteWrite_command hc) ?_ rfl).2 hr
  rw [← Bool.not_eq_true]
  intro hh
  have hid : r.id = e.target.id := (DeletePhase.id_of_hits hc hh).symm
  refine hne ?_
  -- the write finds the row, so the invariant says which row it is
  cases phase with
  | begin | retryBegin _ | keepBegin =>
    cases hc
    simp only [Db.hits, any_eq_true, Bool.and_eq_true, decide_eq_true_eq,
      Db.disableMatches] at hh
    obtain ⟨a, -, hident, -, hcreated, htoken⟩ := hh
    rw [← hident, StreamRow.identity, hcreated, htoken,
      show a.id = e.target.id from (congrArg StreamIdentity.id hident).trans hid]
  | finalize | retryFinalize _ =>
    cases hc
    simp only [Db.hits, any_eq_true, Bool.and_eq_true, decide_eq_true_eq] at hh
    obtain ⟨a, ha, hident, -, hp⟩ := hh
    have hid' : a.id = e.target.id := (congrArg StreamIdentity.id hident).trans hid
    rw [← hident]
    exact h.bound i e hi a ha hid' (.inl ⟨hp, hu⟩)
  | rollbackEnable | keepDisable =>
    cases hc
    exact hbound hid (.inr (hset rfl))
  | _ => cases hc

end DeleteSystem

/-- **A delete keeps to its row.** A write of a delete that takes effect leaves every row of another
identity as it is. -/
theorem delete_identity_fenced {db : Db} (hdb : SchemaOk db) {copies : UInt64 → Db}
    {ops : List DeleteOp} {op : DeleteOp} {s s' : DeleteSystem}
    (hrun : replay DeleteSystem.step (.start db copies) ops = some s)
    (hok : along DeleteSystem.step DeleteSystem.fencedOp ops (.start db copies) = true)
    (hs : s.step op = some s') {i : Nat} {cmd : ClusterCommand} {d : StreamDelete}
    (hw : s.takesEffect op = some (i, cmd)) (hi : s.deletes[i]? = some d) {r : StreamRow}
    (hr : r ∈ s.db.streams) (hne : r.identity ≠ d.target) : r ∈ s'.db.streams := by
  have hfenced : s.Fenced :=
    replay_inv_along (fun _ _ _ h hok hs => h.step hok hs) (.start hdb copies) hok hrun
  rcases DeleteSystem.step_db hs with ⟨w, hw', hdb'⟩ | ⟨hnone, -⟩
  · obtain rfl : w = (i, cmd) := some.inj (hw'.symm.trans hw)
    rw [hdb']
    exact hfenced.untouched hw hi hr hne
  · rw [hw] at hnone
    cases hnone

def replacingStream : Stream :=
  ⟨"s", "cam", "live", "pub2", "play2", "stats2", true, 8⟩

def replacingViewer : StreamViewer := ⟨"v2", "s", "Player 1", "play2", true, 8⟩

def createReplacement : DeleteOp := .command 1 (.createStream replacingStream replacingViewer "u")

/-- The finalize of a delete is lost but takes effect. The stream is created again, and deleted on
another node, while the handler is about to roll back. -/
def rollbackOps : List DeleteOp :=
  [.request 1 true "s" false, .call 0 .answered, .countSessions 0 false, .call 0 .lost, .commit 0,
    createReplacement, .replicate 1, .replicate 2, .request 2 true "s" false, .call 1 .answered,
    .countSessions 1 true, .read 0 false]

/-- A second delete of the row is faster, the stream is created again and its delete begun; then the
first delete finalizes. -/
def outrunOps : List DeleteOp :=
  [.request 1 true "s" false, .call 0 .answered, .countSessions 0 true, .request 2 true "s" false,
    .call 1 .answered, .countSessions 1 false, .call 1 .answered, createReplacement, .replicate 2,
    .request 2 true "s" false, .call 2 .answered, .countSessions 2 true, .read 0 false,
    .call 0 .failed]

/-- The next write of delete 0, for a row that is gone, turns the replacement's row into `rows`. -/
def TouchesReplacement (ops : List DeleteOp) (rows : List StreamRow) : Prop :=
  ∃ s s', replay DeleteSystem.step (.start deletedDb fun _ => deletedDb) ops = some s ∧
    s.step (.call 0 .answered) = some s' ∧ (s.deletes[0]?).map (·.target) = some deletedIdentity ∧
    s.db.streams = [⟨{ replacingStream with enabled := false }, true, "u"⟩] ∧ s'.db.streams = rows

theorem touchesReplacement_of_run {ops : List DeleteOp} {rows : List StreamRow}
    (h : ((replay DeleteSystem.step (.start deletedDb fun _ => deletedDb) ops).bind fun s =>
        (s.step (.call 0 .answered)).map fun s' =>
          ((s.deletes[0]?).map (·.target), s.db.streams, s'.db.streams)) =
      some (some deletedIdentity, [⟨{ replacingStream with enabled := false }, true, "u"⟩], rows)) :
    TouchesReplacement ops rows := by
  obtain ⟨s, hrun, h⟩ := bind_eq_some_iff.1 h
  obtain ⟨s', hs, h⟩ := map_eq_some_iff.1 h
  simp only [Prod.mk.injEq] at h
  exact ⟨s, s', hrun, hs, h.1, h.2.1, h.2.2⟩

/-- One delete takes back the replacement's own delete, another removes the replacement while its
sessions still drain. -/
theorem delete_touches_replacement :
    TouchesReplacement rollbackOps [⟨replacingStream, false, "u"⟩] ∧
      TouchesReplacement outrunOps [] :=
  ⟨touchesReplacement_of_run (by decide +kernel), touchesReplacement_of_run (by decide +kernel)⟩

/-- The begin-delete of a row is lost, the row is deleted by somebody else and replaced. -/
def lateBeginOps : List DeleteOp :=
  [.request 1 true "s" false, .call 0 .lost, .command 1 (.beginDeleteStream "s" none none),
    .command 2 (.finalizeDeleteStream "s"), createReplacement]

/-- When it takes effect after all, the replacement stays as it is. -/
theorem delete_identity_late_begin :
    ∃ s s', replay DeleteSystem.step (.start deletedDb fun _ => deletedDb) lateBeginOps = some s ∧
      s.step (.commit 0) = some s' ∧
      s.takesEffect (.commit 0) =
        some (0, .beginDeleteStream "s" (some 7) (some "t")) ∧
      ⟨replacingStream, false, "u"⟩ ∈ s'.db.streams := by
  have hok : along DeleteSystem.step DeleteSystem.fencedOp lateBeginOps
      (.start deletedDb fun _ => deletedDb) = true := by decide +kernel
  have hends : ((replay DeleteSystem.step (.start deletedDb fun _ => deletedDb)
      lateBeginOps).map fun s => (s.deletes, s.takesEffect (.commit 0), s.db.streams)) =
      some ([⟨1, deletedIdentity, .retryRead 1⟩],
        some (0, .beginDeleteStream "s" (some 7) (some "t")),
        [⟨replacingStream, false, "u"⟩]) := by decide +kernel
  obtain ⟨s, hrun, hends⟩ := map_eq_some_iff.1 hends
  simp only [Prod.mk.injEq] at hends
  obtain ⟨hdeletes, hw, hrows⟩ := hends
  have hs : s.step (.commit 0) = some
      { s with db := (applyCommand s.db (.beginDeleteStream "s" (some 7) (some "t"))).db,
               inFlight := s.inFlight.eraseIdx 0 } := by
    rw [DeleteSystem.step, show s.inFlight[0]? = _ from hw]
    rfl
  refine ⟨s, _, hrun, hs, hw, ?_⟩
  exact delete_identity_fenced deletedDb_schemaOk hrun hok hs hw (by rw [hdeletes]; rfl)
    (by rw [hrows]; exact mem_singleton_self _) (by decide)

end RtmpServer
