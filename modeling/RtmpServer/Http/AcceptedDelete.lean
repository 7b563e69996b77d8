import RtmpServer.Http.StreamDelete

/-!
# Accepted deletes

Once the task of an accepted delete has ended, what is left of the row depends on the begin-deletes
and plain disables that took effect on it. When only the outcomes of the coordinator's calls vary,
the plain disable is never sent to a row that is disabled and pending (`DeleteSystem.Alone`), so one
begin-delete that takes effect is enough.
-/

namespace RtmpServer

open List Lib.Table Lib.Replay
open Bool hiding and_true false_or not_and
open Option hiding any_eq_true

variable {phase : DeletePhase} {next : DeletePhase × MarkerChange} {own : StreamIdentity}
  {row : DbLookup StreamRow}

/-! ### The writes that find the row -/

/-- The row is gone, or it is disabled and its delete can be finished later. -/
def Db.DeleteHeld (db : Db) (target : StreamIdentity) : Prop :=
  ∀ r ∈ db.streams, r.identity = target → r.enabled = false ∧ r.pendingDelete = true

/-- The writes of deletes along a run that find the row, in the order they take effect. -/
def DeleteSystem.rowWrites (target : StreamIdentity) :
    DeleteSystem → List DeleteOp → List ClusterCommand
  | _, [] => []
  | s, op :: ops =>
    (((s.takesEffect op).filter fun w => s.db.hits target w.2).map (·.2)).toList ++
      (s.step op).elim [] fun s' => rowWrites target s' ops

def DeleteSystem.undisturbed (id : String) (s : DeleteSystem) : DeleteOp → Bool
  | .command index cmd => (applyNormal index s.db cmd).db.streamRow id = s.db.streamRow id
  | _ => true

namespace Db

variable {db : Db} {target : StreamIdentity}

theorem deleteHeld_of_hits (hu : UniqueOn (·.id) db.streams) {cmd : ClusterCommand}
    (hh : db.hits target cmd) :
    (applyCommand db cmd).db.DeleteHeld target ↔ cmd.isSetStreamEnabled = false := by
  -- the id is unique, so the row the write found is the only one of its identity
  have only : ∀ {a b : StreamRow}, a ∈ db.streams → b ∈ db.streams → a.identity = target →
      b.identity = target → a = b := by
    intro a b ha hb hat hbt
    have hid : a.identity.id = b.identity.id := by rw [hat, hbt]
    exact hu.eq_of_key ha hb hid
  cases cmd with
  | beginDeleteStream id createdAt token =>
    have hdb : (applyCommand db (.beginDeleteStream id createdAt token)).db = _ :=
      beginDeleteStream_db 0 db id createdAt token
    simp only [hits, any_eq_true, and_eq_true, decide_eq_true_eq] at hh
    obtain ⟨a, ha, hat, hp⟩ := hh
    refine ⟨fun _ => rfl, fun _ r hr hrt => ?_⟩
    rw [hdb, mem_setStreamFlags] at hr
    rcases hr with ⟨b, -, -, rfl⟩ | ⟨hmem, hn⟩
    · exact ⟨rfl, rfl⟩
    · rw [only hmem ha hrt hat, hp] at hn
      cases hn
  | finalizeDeleteStream id =>
    simp only [hits, any_eq_true, and_eq_true, decide_eq_true_eq] at hh
    obtain ⟨a, ha, hat, hp⟩ := hh
    refine ⟨fun _ => rfl, fun _ r hr hrt => ?_⟩
    rw [streams_finalizeDeleteStream, mem_deleteWhere] at hr
    rw [only hr.1 ha hrt hat] at hr
    simp [hp] at hr
  | setStreamEnabled id enabled =>
    have hdb : (applyCommand db (.setStreamEnabled id enabled)).db = _ :=
      setStreamEnabled_db 0 db id enabled
    simp only [hits, any_eq_true, and_eq_true, decide_eq_true_eq] at hh
    obtain ⟨a, ha, hat, hp⟩ := hh
    refine ⟨fun hheld => ?_, fun h => by cases h⟩
    have hmem : a.withFlags enabled false ∈
        (applyCommand db (.setStreamEnabled id enabled)).db.streams := by
      rw [hdb, mem_setStreamFlags]
      exact .inl ⟨a, ha, by simpa using hp, rfl⟩
    cases (hheld _ hmem hat).2
  | _ => cases hh

end Db

namespace DeleteSystem

variable {s s' : DeleteSystem} {op : DeleteOp}
variable {target : StreamIdentity} {ops : List DeleteOp}

def rowWrite (target : StreamIdentity) (s : DeleteSystem) (op : DeleteOp) : Option ClusterCommand :=
  ((s.takesEffect op).filter fun w => s.db.hits target w.2).map (·.2)

theorem rowWrites_cons (h : s.step op = some s') :
    s.rowWrites target (op :: ops) =
      (s.rowWrite target op).toList ++ s'.rowWrites target ops := by
  rw [rowWrites, h]
  rfl

theorem rowWrite_eq_some {cmd : ClusterCommand} :
    s.rowWrite target op = some cmd ↔
      ∃ i, s.takesEffect op = some (i, cmd) ∧ s.db.hits target cmd = true := by
  unfold rowWrite
  cases s.takesEffect op with
  | none => simp
  | some w =>
    obtain ⟨i, c⟩ := w
    cases hh : s.db.hits target c with
    | true =>
      simp only [Option.filter, hh, if_true, Option.map_some, Option.some.injEq, Prod.mk.injEq]
      refine ⟨fun hc => ⟨i, ⟨rfl, hc⟩, hc ▸ hh⟩, fun ⟨_, hc, _⟩ => hc.2⟩
    | false =>
      simp only [Option.filter, hh, false_eq_true, if_false, Option.map_none, reduceCtorEq,
        false_iff, not_exists, not_and, Option.some.injEq, Prod.mk.injEq]
      rintro j ⟨-, rfl⟩ hc
      rw [hh] at hc
      cases hc

theorem Sound.mem_streams_step (h : s.Sound) (hq : s.undisturbed target.id op)
    (hs : s.step op = some s') (hn : s.rowWrite target op = none) {r : StreamRow}
    (hr : r.identity = target) : r ∈ s'.db.streams ↔ r ∈ s.db.streams := by
  rcases step_db hs with ⟨w, hw, hdb⟩ | ⟨-, hdb | ⟨index, cmd, rfl, hdb⟩⟩
  · have hh : s.db.hits target w.2 = false := by
      rw [← not_eq_true]
      intro hh
      rw [rowWrite_eq_some.2 ⟨w.1, hw, hh⟩] at hn
      cases hn
    rw [hdb]
    exact Db.mem_streams_of_not_hits (h.takesEffect hw) hh hr
  · rw [hdb]
  · have hrow : s'.db.streamRow target.id = s.db.streamRow target.id := by
      rw [hdb]
      simpa [undisturbed] using hq
    have hid : r.id = target.id := by
      rw [← hr]
      rfl
    have hl' := (h.step hs).schema.streamId.lookup_eq_some (k := target.id) (r := r)
    have hl := h.schema.streamId.lookup_eq_some (k := target.id) (r := r)
    simp only [hid, and_true] at hl hl'
    rw [← hl, ← hl']
    exact Eq.congr_left hrow

theorem Sound.deleteHeld_step (h : s.Sound) (hq : s.undisturbed target.id op)
    (hs : s.step op = some s') :
    s'.db.DeleteHeld target ↔
      (s.rowWrite target op).elim (s.db.DeleteHeld target) (·.isSetStreamEnabled = false) := by
  cases hw : s.rowWrite target op with
  | none =>
    have hmem := fun r hr => h.mem_streams_step hq hs hw (r := r) hr
    constructor
    · exact fun hheld r hr hrt => hheld r ((hmem r hrt).2 hr) hrt
    · exact fun hheld r hr hrt => hheld r ((hmem r hrt).1 hr) hrt
  | some cmd =>
    obtain ⟨i, hw, hh⟩ := rowWrite_eq_some.1 hw
    rcases step_db hs with ⟨w, hw', hdb⟩ | ⟨hnone, -⟩
    · obtain rfl : w = (i, cmd) := some.inj (hw'.symm.trans hw)
      rw [hdb]
      exact Db.deleteHeld_of_hits h.schema.streamId hh
    · rw [hw] at hnone
      cases hnone

theorem Sound.deleteHeld_run (h : s.Sound)
    (hq : along DeleteSystem.step (undisturbed target.id) ops s)
    (hrun : replay DeleteSystem.step s ops = some s') :
    s'.db.DeleteHeld target ↔ (s.rowWrites target ops).getLast?.elim
      (s.db.DeleteHeld target) (·.isSetStreamEnabled = false) := by
  induction ops generalizing s with
  | nil =>
    obtain rfl := some.inj hrun
    rfl
  | cons op ops ih =>
    obtain ⟨s₁, hs, hrun⟩ := replay_cons_eq_some.1 hrun
    rw [along, hs, all_some, and_eq_true_iff] at hq
    rw [rowWrites_cons hs, ih (h.step hs) hq.2 hrun, h.deleteHeld_step hq.1 hs,
      getLast?_append]
    cases s₁.rowWrites target ops with
    | nil => cases s.rowWrite target op <;> rfl
    | cons w ws => rfl

end DeleteSystem

/-! ### A delete on its own

When the reads are up to date and a lost write takes effect at once or never, the only way to lose
an accepted delete is that none of its begin-deletes took effect. -/

/-- The request is being answered, or was answered, with something else than 202. -/
def DeletePhase.synchronous : DeletePhase → Bool
  | .finalize | .rollbackRead | .rollbackEnable => true
  | .ended reply => reply ≠ .accepted
  | _ => false

/-- The task has seen its row and decides on the plain disable. -/
def DeletePhase.deciding : DeletePhase → Bool
  | .keepReadEnabled | .keepReadPending | .keepDisable => true
  | _ => false

theorem DeletePhase.deciding_afterCall {cmd : ClusterCommand} (hc : phase.command own = some cmd)
    (result : Except CoordError Unit) : (phase.afterCall result).1.deciding = false := by
  cases phase with
  | begin | finalize | retryBegin _ | keepBegin =>
    rcases result with (_ | _ | _ | _ | mayHaveCommitted) | _
    all_goals first | rfl | cases mayHaveCommitted <;> rfl
  | retryFinalize attempt =>
    rcases result with (_ | _ | _ | _ | _) | _
    all_goals
      simp only [afterCall]
      first | rfl | split_ifs <;> rfl
  | rollbackEnable | keepDisable => rfl
  | _ => cases hc

theorem DeletePhase.synchronous_afterCall (h : phase.synchronous)
    (result : Except CoordError Unit) : (phase.afterCall result).1.synchronous = true := by
  cases phase with
  | finalize => rcases result with (_ | _ | _ | _ | _) | _ <;> rfl
  | rollbackRead | rollbackEnable => rfl
  | ended reply => exact h
  | _ => cases h

theorem DeletePhase.synchronous_afterRead (h : phase.synchronous)
    (hn : phase.afterRead own row = some next) : next.1.synchronous = true := by
  cases phase with
  | rollbackRead =>
    cases row <;>
    · cases hn
      rfl
  | finalize | rollbackEnable | ended _ => cases hn
  | _ => cases h

theorem DeletePhase.of_deciding_afterRead (h : phase.afterRead own row = some next)
    (hd : next.1.deciding) :
    phase.deciding ∨
      ∃ r, row = .ok r ∧ r.createdAt = own.createdAt ∧ r.deleteToken = own.deleteToken := by
  cases phase with
  | keepReadEnabled | keepReadPending => exact .inl rfl
  | keepReadToken =>
    cases row with
    | ok r =>
      simp only [afterRead] at h
      split_ifs at h with hr
      · exact .inr ⟨r, rfl, hr⟩
      · cases h
        cases hd
    | _ =>
      cases h
      cases hd
  | rollbackRead =>
    cases row <;>
    · cases h
      cases hd
  | retryRead attempt =>
    cases row with
    | ok r =>
      simp only [afterRead] at h
      split_ifs at h <;>
      · cases h
        cases hd
    | _ =>
      cases h
      cases hd
  | _ => cases h

theorem DeletePhase.afterRead_ne_keepDisable {r : StreamRow}
    (h : phase.afterRead own (.ok r) = some next) (he : r.enabled = false)
    (hp : r.pendingDelete) : next.1 ≠ .keepDisable := by
  cases phase with
  | rollbackRead | keepReadEnabled | keepReadPending =>
    simp only [afterRead, he, hp, false_eq_true, if_false, if_true] at h
    cases h
    intro hc
    cases hc
  | retryRead attempt | keepReadToken =>
    simp only [afterRead] at h
    split_ifs at h <;>
    · cases h
      intro hc
      cases hc
  | _ => cases h

namespace DeleteSystem

variable {w : Nat × ClusterCommand} {cmd : ClusterCommand} {ops : List DeleteOp} {d : StreamDelete}
  {id : String}

def settled (i : Nat) (s : DeleteSystem) : Bool := s.inFlight.all fun w => w.1 ≠ i

/-- Nobody else works on the id; the lost writes of delete `i` are decided before it goes on, and
what it reads is what the coordinator has. -/
def orderly (i : Nat) (id : String) (s : DeleteSystem) : DeleteOp → Bool
  | .request _ _ id' _ => id' ≠ id || s.deletes.length = i
  | .call j _ => j ≠ i || s.settled i
  | .countSessions _ _ => true
  | .read j fails =>
    j ≠ i || (s.settled i && !fails &&
      s.deletes[i]?.all fun d => (s.copies d.node).streamRow id = s.db.streamRow id)
  | .commit _ | .drop _ => true
  | .command index cmd => s.undisturbed id (.command index cmd)
  | .replicate _ => true

variable {s s' : DeleteSystem} {op : DeleteOp} {i : Nat} {target : StreamIdentity}

theorem undisturbed_of_orderly (h : s.orderly i id op) : s.undisturbed id op = true := by
  cases op <;> first | rfl | exact h

/-- Delete `i` is for this row, and it was not answered synchronously so far. -/
def ForRow (i : Nat) (target : StreamIdentity) (s : DeleteSystem) : Prop :=
  ∀ d, s.deletes[i]? = some d → d.target = target ∧ d.phase.synchronous = false

theorem ForRow.keepDisable (hf : s.ForRow i target) (hi : s.deletes[i]? = some d)
    (hc : d.phase.command d.target = some cmd) (hset : cmd.isSetStreamEnabled) :
    d.phase = .keepDisable := by
  refine (DeletePhase.of_isSetStreamEnabled hc hset).resolve_left fun hp => ?_
  have hsync := (hf d hi).2
  rw [hp] at hsync
  cases hsync

/-- What holds while delete `i` is the only one for its id. -/
structure Alone (i : Nat) (target : StreamIdentity) (s : DeleteSystem) : Prop where
  sound : s.Sound
  only : ∀ (j : Nat) (d : StreamDelete), s.deletes[j]? = some d → d.target.id = target.id → j = i
  owned : s.Owned
  one : s.inFlight.countP (fun w => w.1 = i) ≤ 1
  /-- From the read on nothing else of the delete can happen to the row. -/
  deciding : ∀ d, s.deletes[i]? = some d → d.phase.deciding = true →
    s.settled i = true ∧ ∃ r ∈ s.db.streams, r.identity = target
  /-- Once the delete is held, the plain disable is neither sent nor on its way. -/
  held : ∀ d, s.deletes[i]? = some d → s.db.DeleteHeld target →
    d.phase ≠ .keepDisable ∧ ∀ w ∈ s.inFlight, w.1 = i → w.2.isSetStreamEnabled = false

theorem Alone.not_hits (h : s.Alone i target) (hw : s.takesEffect op = some w) (hi : w.1 ≠ i) :
    s.db.hits target w.2 = false := by
  rw [← not_eq_true]
  intro hh
  rcases takesEffect_cases hw with ⟨d, hj, hc⟩ | hmem
  · exact hi (h.only w.1 d hj (DeletePhase.id_of_hits hc hh))
  · obtain ⟨d, hj, phase, hc⟩ := h.owned w hmem
    exact hi (h.only w.1 d hj (DeletePhase.id_of_hits hc hh))

theorem Alone.rowWrite_none (h : s.Alone i target)
    (hi : ∀ w, s.takesEffect op = some w → w.1 ≠ i) : s.rowWrite target op = none := by
  rw [eq_none_iff_forall_ne_some]
  intro cmd hw
  obtain ⟨j, hw, hh⟩ := rowWrite_eq_some.1 hw
  rw [h.not_hits hw (hi _ hw)] at hh
  cases hh

theorem Alone.not_held (h : s.Alone i target) (hf : s.ForRow i target)
    (hw : s.rowWrite target op = some cmd) (hset : cmd.isSetStreamEnabled) :
    ¬ s.db.DeleteHeld target := by
  intro hheld
  obtain ⟨j, hw, hh⟩ := rowWrite_eq_some.1 hw
  have hj : j = i := by
    by_contra hne
    rw [h.not_hits hw hne] at hh
    cases hh
  subst hj
  rcases takesEffect_cases hw with ⟨d, hd, hc⟩ | hmem
  · exact (h.held d hd hheld).1 (hf.keepDisable hd hc hset)
  · obtain ⟨d, hd, -⟩ := h.owned _ hmem
    rw [(h.held d hd hheld).2 _ hmem rfl] at hset
    cases hset

theorem settled_iff : s.settled i ↔ ∀ w ∈ s.inFlight, w.1 ≠ i := by
  simp [settled]

section

variable (h : s.Alone i target)
include h

theorem Alone.only_step (ho : s.orderly i target.id op)
    (hs : s.step op = some s') (j : Nat) (d' : StreamDelete) (hj : s'.deletes[j]? = some d')
    (ht : d'.target.id = target.id) : j = i := by
  rcases target_step hs hj with ⟨d, hd, heq⟩ | ⟨-, hlen, node, bearerOk, readFails, rfl⟩
  · exact h.only j d hd (heq ▸ ht)
  · rw [ht] at ho
    simp only [orderly, ne_eq, not_true_eq_false, decide_false, Bool.false_or,
      decide_eq_true_eq] at ho
    rw [hlen, ho]

theorem Alone.undecided (ho : s.orderly i target.id op)
    (hs : s.step op = some s') (hone : s'.inFlight.countP (fun w => w.1 = i) ≤ 1)
    (hdec : ∀ d, s'.deletes[i]? = some d → d.phase.deciding = false)
    (hsets : s'.db.DeleteHeld target →
      ∀ w ∈ s'.inFlight, w.1 = i → w.2.isSetStreamEnabled = false) : s'.Alone i target := by
  refine ⟨h.sound.step hs, h.only_step ho hs, h.owned.step hs, hone, fun d hdi hp => ?_,
    fun d hdi hheld => ⟨fun hp => ?_, hsets hheld⟩⟩
  · rw [hdec d hdi] at hp
    cases hp
  · have hp' := hdec d hdi
    rw [hp] at hp'
    cases hp'

theorem Alone.frame (ho : s.orderly i target.id op)
    (hs : s.step op = some s') (hd : s'.deletes[i]? = s.deletes[i]?)
    (hw : (s'.inFlight.filter fun w => w.1 = i).Sublist (s.inFlight.filter fun w => w.1 = i))
    (hi : ∀ w, s.takesEffect op = some w → w.1 ≠ i) : s'.Alone i target := by
  have hq := undisturbed_of_orderly ho
  have hn := h.rowWrite_none hi
  have own : ∀ w ∈ s'.inFlight, w.1 = i → w ∈ s.inFlight := by
    intro w hmem hwi
    have hsub := hw.subset (mem_filter.2 ⟨hmem, by simpa using hwi⟩)
    exact (mem_filter.1 hsub).1
  refine ⟨h.sound.step hs, h.only_step ho hs, h.owned.step hs, ?_, ?_, ?_⟩
  · rw [countP_eq_length_filter]
    exact hw.length_le.trans (countP_eq_length_filter ▸ h.one)
  · intro d hdi hp
    obtain ⟨hset, r, hr, hrt⟩ := h.deciding d (hd ▸ hdi) hp
    refine ⟨settled_iff.2 fun w hmem hwi => ?_, r, (h.sound.mem_streams_step hq hs hn hrt).2 hr, hrt⟩
    exact settled_iff.1 hset w (own w hmem hwi) hwi
  · intro d hdi hheld
    rw [h.sound.deleteHeld_step hq hs, hn] at hheld
    obtain ⟨hp, hsets⟩ := h.held d (hd ▸ hdi) hheld
    exact ⟨hp, fun w hmem hwi => hsets w (own w hmem hwi) hwi⟩

theorem Alone.taken {node : UInt64} {bearerOk readFails : Bool}
    (ho : s.orderly i target.id (.request node bearerOk id readFails))
    (hs : s.step (.request node bearerOk id readFails) = some s') {r : StreamRow}
    (hd : s'.deletes = s.deletes ++ [⟨node, r.identity, .begin⟩]) (hw : s'.inFlight = s.inFlight) :
    s'.Alone i target := by
  rcases Nat.lt_trichotomy i s.deletes.length with hlt | heq | hgt
  · exact h.frame ho hs (by rw [hd, getElem?_append_left hlt]) (by rw [hw])
      (fun w hw => by cases hw)
  · -- this is the delete itself: it has sent nothing yet
    have hnone : ∀ w ∈ s.inFlight, w.1 ≠ i := by
      intro w hmem hwi
      obtain ⟨d, hd, -⟩ := h.owned w hmem
      have := (List.getElem?_eq_some_iff.1 hd).1
      omega
    refine h.undecided ho hs (hw ▸ h.one) (fun d hdi => ?_) fun _ w hmem hwi => ?_
    · rw [hd, heq, getElem?_append_right (Nat.le_refl _), Nat.sub_self] at hdi
      obtain rfl := some.inj hdi
      rfl
    · exact absurd hwi (hnone w (hw ▸ hmem))
  · exact h.frame ho hs (by
      rw [hd, getElem?_eq_none_iff.2 (by simp; omega),
        getElem?_eq_none_iff.2 (Nat.le_of_lt hgt)]) (by rw [hw]) (fun w hw => by cases hw)

theorem Alone.call (hf : s.ForRow i target) {outcome : CallOutcome}
    (ho : s.orderly i target.id (.call i outcome)) (hs : s.step (.call i outcome) = some s')
    (hi : s.deletes[i]? = some d) (hc : d.phase.command d.target = some cmd)
    (hd : s'.deletes = s.deletes.set i
      { d with phase := (d.phase.afterCall (s.send i cmd outcome).2).1 })
    (hw : s'.inFlight = (s.send i cmd outcome).1.inFlight) : s'.Alone i target := by
  have hset : ∀ w ∈ s.inFlight, w.1 ≠ i := settled_iff.1 (by simpa [orderly] using ho)
  have hnone : s.inFlight.countP (fun w => w.1 = i) = 0 := by
    rw [countP_eq_zero]
    intro w hmem
    simpa using hset w hmem
  refine h.undecided ho hs ?_ (fun e he => ?_) fun hheld w hmem hwi => ?_
  · rw [hw]
    cases outcome with
    | answered => exact hnone.trans_le (Nat.zero_le _)
    | failed => exact hnone.trans_le (Nat.zero_le _)
    | lost =>
      show (s.inFlight ++ [(i, cmd)]).countP _ ≤ 1
      rw [countP_append, hnone]
      simp
  · obtain rfl := some.inj ((getElem?_of_set hi hd).symm.trans he)
    exact DeletePhase.deciding_afterCall hc _
  · rw [hw] at hmem
    cases outcome with
    | answered => exact absurd hwi (hset w hmem)
    | failed => exact absurd hwi (hset w hmem)
    | lost =>
      rcases mem_append.1 hmem with hmem | hmem
      · exact absurd hwi (hset w hmem)
      · obtain rfl := mem_singleton.1 hmem
        rw [← not_eq_true]
        intro hcmd
        have hheld' := (h.sound.deleteHeld_step (undisturbed_of_orderly ho) hs).1 hheld
        exact (h.held d hi hheld').1 (hf.keepDisable hi hc hcmd)

theorem Alone.read (hf : s.ForRow i target) {fails : Bool}
    (ho : s.orderly i target.id (.read i fails)) (hs : s.step (.read i fails) = some s')
    {next : DeletePhase × MarkerChange} (hi : s.deletes[i]? = some d)
    (hn : d.phase.afterRead d.target
      (.ofOption fails ((s.copies d.node).streamRow d.target.id)) = some next)
    (hdb : s'.db = s.db) (hd : s'.deletes = s.deletes.set i { d with phase := next.1 })
    (hw : s'.inFlight = s.inFlight) : s'.Alone i target := by
  obtain ⟨rfl, -⟩ := hf d hi
  simp only [orderly, ne_eq, not_true_eq_false, decide_false, Bool.false_or, and_eq_true,
    not_eq_true', hi, all_some, decide_eq_true_eq] at ho
  obtain ⟨⟨hset, rfl⟩, hcopy⟩ := ho
  rw [hcopy] at hn
  have hphase : ∀ e, s'.deletes[i]? = some e → e.phase = next.1 := by
    intro e he
    obtain rfl := some.inj ((getElem?_of_set hi hd).symm.trans he)
    rfl
  have hrow : next.1.deciding = true → ∃ r ∈ s.db.streams, r.identity = d.target := by
    intro hp
    rcases DeletePhase.of_deciding_afterRead hn hp with hp | ⟨r, hr, hc, ht⟩
    · exact (h.deciding d hi hp).2
    · cases hl : s.db.streamRow d.target.id with
      | none =>
        rw [hl] at hr
        cases hr
      | some r' =>
        rw [hl] at hr
        cases hr
        refine ⟨r, mem_of_lookup hl, ?_⟩
        rw [StreamRow.identity, Db.id_of_streamRow hl, hc, ht]
  refine ⟨h.sound.step hs, ?_, h.owned.step hs, hw ▸ h.one, ?_, ?_⟩
  · exact h.only_step (by simp [orderly, hi, hset, hcopy]) hs
  · intro e he hp
    rw [hphase e he] at hp
    rw [hdb]
    exact ⟨settled_iff.2 (hw ▸ settled_iff.1 hset), hrow hp⟩
  · intro e he hheld
    rw [hdb] at hheld
    rw [hphase e he, hw]
    refine ⟨fun hp => ?_, fun w hmem hwi => absurd hwi (settled_iff.1 hset w hmem)⟩
    obtain ⟨r, hr, hrt⟩ := hrow (by rw [hp]; rfl)
    have hl : s.db.streamRow d.target.id = some r :=
      h.sound.schema.streamId.lookup_eq_some.2 ⟨hr, by rw [← hrt]; rfl⟩
    rw [hl] at hn
    obtain ⟨hen, hpend⟩ := hheld r hr hrt
    exact DeletePhase.afterRead_ne_keepDisable hn hen hpend hp

theorem Alone.commit {k : Nat}
    (ho : s.orderly i target.id (.commit k)) (hs : s.step (.commit k) = some s')
    (hk : s.inFlight[k]? = some w) (hwi : w.1 = i) (hd : s'.deletes = s.deletes)
    (hw : s'.inFlight = s.inFlight.eraseIdx k) : s'.Alone i target := by
  have hnone : s'.inFlight.countP (fun w => w.1 = i) = 0 := by
    have hone := h.one
    have hperm := (List.getElem_cons_eraseIdx_perm (List.getElem?_eq_some_iff.1 hk).1).countP_eq
      (fun w => decide (w.1 = i))
    rw [(List.getElem?_eq_some_iff.1 hk).2, List.countP_cons, if_pos (by simpa using hwi)] at hperm
    rw [hw]
    omega
  refine h.undecided ho hs (by omega) (fun d hdi => ?_) fun _ v hmem hvi => ?_
  · rw [← not_eq_true]
    intro hp
    exact settled_iff.1 (h.deciding d (hd ▸ hdi) hp).1 w (mem_of_getElem? hk) hwi
  · exact absurd (by simpa using hvi) (countP_eq_zero.1 hnone v hmem)

theorem Alone.step (hf : s.ForRow i target)
    (ho : s.orderly i target.id op) (hs : s.step op = some s') : s'.Alone i target := by
  cases step_stepped hs with
  | refused _ => exact h
  | taken r _ _ _ hd hw => exact h.taken ho hs hd hw
  | @call j outcome _ d cmd hi hc _ hd hw =>
    by_cases hj : j = i
    · subst hj
      exact h.call hf ho hs hi hc hd hw
    · refine h.frame ho hs (by rw [hd, getElem?_set_ne hj]) ?_ ?_
      · rw [hw]
        cases outcome with
        | answered => exact List.Sublist.refl _
        | failed => exact List.Sublist.refl _
        | lost =>
          show ((s.inFlight ++ [(j, cmd)]).filter _).Sublist _
          simp [filter_append, hj]
      · intro w hw
        cases outcome with
        | answered =>
          simp only [takesEffect, hi, hc, bind_some, map_some] at hw
          obtain rfl := some.inj hw
          exact hj
        | failed => cases hw
        | lost => cases hw
  | @counted j live _ d hi _ hdb hd hw =>
    by_cases hj : j = i
    · subst hj
      refine h.undecided ho hs (hw ▸ h.one) (fun e he => ?_) fun hheld => ?_
      · obtain rfl := some.inj ((getElem?_of_set hi hd).symm.trans he)
        cases live <;> rfl
      · exact hw ▸ (h.held d hi (hdb ▸ hheld)).2
    · exact h.frame ho hs (by rw [hd, getElem?_set_ne hj]) (by rw [hw])
        (fun w hw => by cases hw)
  | @read j fails _ d next hi hn hdb hd hw =>
    by_cases hj : j = i
    · subst hj
      exact h.read hf ho hs hi hn hdb hd hw
    · exact h.frame ho hs (by rw [hd, getElem?_set_ne hj]) (by rw [hw])
        (fun w hw => by cases hw)
  | @commit k _ w hk _ hd hw =>
    by_cases hwi : w.1 = i
    · exact h.commit ho hs hk hwi hd hw
    · refine h.frame ho hs (by rw [hd]) ?_ ?_
      · rw [hw]
        exact (eraseIdx_sublist _ _).filter _
      · intro v hv
        obtain rfl : w = v := some.inj (hk.symm.trans hv)
        exact hwi
  | drop _ hd hw =>
    refine h.frame ho hs (by rw [hd]) ?_ (fun w hw => by cases hw)
    rw [hw]
    exact (eraseIdx_sublist _ _).filter _
  | command _ hd hw => exact h.frame ho hs (by rw [hd]) (by rw [hw]) (fun w hw => by cases hw)
  | replicate _ hd hw => exact h.frame ho hs (by rw [hd]) (by rw [hw]) (fun w hw => by cases hw)

end

theorem Alone.start {db : Db} (hdb : SchemaOk db) (copies : UInt64 → Db) :
    (DeleteSystem.start db copies).Alone i target where
  sound := .start hdb copies
  only := fun _ _ h _ => by cases h
  owned := fun _ h => by cases h
  one := Nat.zero_le _
  deciding := fun _ h _ => by cases h
  held := fun _ h _ => by cases h

theorem synchronous_step (hs : s.step op = some s') {d d' : StreamDelete}
    (hd : s.deletes[i]? = some d) (hd' : s'.deletes[i]? = some d')
    (hsync : d.phase.synchronous) : d'.phase.synchronous = true := by
  have of_eq : s'.deletes[i]? = s.deletes[i]? → d'.phase.synchronous = true := by
    intro heq
    obtain rfl : d = d' := some.inj (hd.symm.trans (heq ▸ hd'))
    exact hsync
  rcases deletes_cases hs with heq | ⟨_, _, _, _, -, heq⟩ | ⟨k, e, phase, hk, heq, hphase⟩
  · exact of_eq (by rw [heq])
  · exact of_eq (by rw [heq, getElem?_append_left (List.getElem?_eq_some_iff.1 hd).1])
  · by_cases hik : k = i
    · subst hik
      obtain rfl : d = e := some.inj (hd.symm.trans hk)
      obtain rfl := some.inj ((getElem?_of_set hk heq).symm.trans hd')
      rcases hphase with ⟨result, rfl⟩ | hp | ⟨row, marker, hn⟩
      · exact DeletePhase.synchronous_afterCall hsync result
      · rw [hp] at hsync
        cases hsync
      · exact DeletePhase.synchronous_afterRead hsync hn
    · exact of_eq (by rw [heq, getElem?_set_ne hik])

theorem ForRow.of_replay (hrun : replay DeleteSystem.step s ops = some s')
    (h : s'.ForRow i target) : s.ForRow i target := by
  induction ops generalizing s with
  | nil =>
    obtain rfl := some.inj hrun
    exact h
  | cons op ops ih =>
    obtain ⟨s₁, hs, hrun⟩ := replay_cons_eq_some.1 hrun
    intro d hd
    obtain ⟨d₁, hd₁, ht⟩ := deletes_step hs hd
    obtain ⟨htarget, hsync⟩ := ih hrun d₁ hd₁
    refine ⟨ht ▸ htarget, ?_⟩
    rw [← not_eq_true] at hsync ⊢
    exact fun hd' => hsync (synchronous_step hs hd hd₁ hd')

theorem Alone.held_run (h : s.Alone i target)
    (ho : along DeleteSystem.step (orderly i target.id) ops s)
    (hrun : replay DeleteSystem.step s ops = some s') (hf : s'.ForRow i target)
    (hheld : s.db.DeleteHeld target ∨ ∃ w ∈ s.rowWrites target ops, w.isSetStreamEnabled = false) :
    s'.db.DeleteHeld target := by
  induction ops generalizing s with
  | nil =>
    obtain rfl := some.inj hrun
    rcases hheld with hheld | ⟨w, hw, -⟩
    · exact hheld
    · cases hw
  | cons op ops ih =>
    have hfs : s.ForRow i target := hf.of_replay hrun
    obtain ⟨s₁, hs, hrun⟩ := replay_cons_eq_some.1 hrun
    rw [along, hs, all_some, and_eq_true_iff] at ho
    have hstep := h.sound.deleteHeld_step (undisturbed_of_orderly ho.1) hs
    refine ih (h.step hfs ho.1 hs) ho.2 hrun ?_
    rw [rowWrites_cons hs] at hheld
    cases hw : s.rowWrite target op with
    | none =>
      rw [hw] at hstep hheld
      rcases hheld with hheld | hlater
      · exact .inl (hstep.2 hheld)
      · exact .inr hlater
    | some cmd =>
      rw [hw] at hstep hheld
      cases hset : cmd.isSetStreamEnabled with
      | false => exact .inl (hstep.2 hset)
      | true =>
        rcases hheld with hheld | ⟨w, hmem, hwset⟩
        · exact absurd hheld (h.not_held hfs hw hset)
        · rcases mem_append.1 hmem with hmem | hmem
          · obtain rfl := mem_singleton.1 hmem
            rw [hset] at hwset
            cases hwset
          · exact .inr ⟨w, hmem, hwset⟩

end DeleteSystem

/-- **When an accepted delete holds.** A delete was answered 202 and its task has ended, with nobody
else writing to the row. Then the row is gone, or disabled and pending, just when the last of the
writes that found it was not the plain enable or disable; with current reads and no write in doubt,
that is when some begin-delete took effect. -/
theorem accepted_delete_held_iff {db : Db} (hdb : SchemaOk db) {copies : UInt64 → Db}
    {ops : List DeleteOp} {s : DeleteSystem}
    (hrun : replay DeleteSystem.step (.start db copies) ops = some s) {i : Nat} {d : StreamDelete}
    (hi : s.deletes[i]? = some d) (hend : d.phase = .ended .accepted) :
    (along DeleteSystem.step (DeleteSystem.undisturbed d.target.id) ops (.start db copies) = true →
      (s.db.DeleteHeld d.target ↔
        ((DeleteSystem.start db copies).rowWrites d.target ops).getLast?.elim
          (db.DeleteHeld d.target) (·.isSetStreamEnabled = false))) ∧
    (along DeleteSystem.step (DeleteSystem.orderly i d.target.id) ops (.start db copies) = true →
      (s.db.DeleteHeld d.target ↔ db.DeleteHeld d.target ∨
        ∃ w ∈ (DeleteSystem.start db copies).rowWrites d.target ops,
          w.isSetStreamEnabled = false)) := by
  have hsound : (DeleteSystem.start db copies).Sound := .start hdb copies
  refine ⟨fun hq => hsound.deleteHeld_run hq hrun, fun ho => ⟨fun hheld => ?_, fun hheld => ?_⟩⟩
  · have hq := along_mono (fun _ _ => DeleteSystem.undisturbed_of_orderly) ho
    rw [hsound.deleteHeld_run hq hrun] at hheld
    cases hlast : ((DeleteSystem.start db copies).rowWrites d.target ops).getLast? with
    | none =>
      rw [hlast] at hheld
      exact .inl hheld
    | some w =>
      rw [hlast] at hheld
      exact .inr ⟨w, mem_of_getLast? hlast, hheld⟩
  · have hf : s.ForRow i d.target := by
      intro e he
      obtain rfl : e = d := some.inj (he.symm.trans hi)
      exact ⟨rfl, by rw [hend]; rfl⟩
    exact (DeleteSystem.Alone.start hdb copies).held_run ho hrun hf hheld

def deletedStream : Stream :=
  ⟨"s", "cam", "live", "pub", "play", "stats", true, 7⟩

def deletedDb : Db := { Db.empty with streams := [⟨deletedStream, false, "t"⟩] }

def deletedIdentity : StreamIdentity := ⟨"s", 7, "t"⟩

theorem deletedDb_schemaOk : SchemaOk deletedDb := by
  constructor <;> simp [deletedDb, Db.empty, UniqueOn]

def retryRound (outcome : CallOutcome) : List DeleteOp :=
  [.read 0 false, .call 0 outcome, .call 0 outcome]

def sixRounds (outcome : CallOutcome) : List DeleteOp :=
  (replicate finalizeAttempts (retryRound outcome)).flatten

/-- The handler's begin-delete is lost for good, and every write of the task fails. -/
def lostDeleteOps : List DeleteOp :=
  [DeleteOp.request 1 true "s" false, .call 0 .lost, .drop 0] ++ sixRounds .failed ++
    [DeleteOp.call 0 .failed, .read 0 false, .read 0 false, .call 0 .failed]

/-- The begin-delete took effect, but every finalize failed, and then a read of the fallback. -/
def unmarkedDeleteOps : List DeleteOp :=
  [DeleteOp.request 1 true "s" false, .call 0 .answered, .countSessions 0 true, .replicate 1] ++
    sixRounds .failed ++
    [DeleteOp.call 0 .failed, .read 0 false, .read 0 true, .call 0 .answered]

theorem not_deleteHeld_singleton {db : Db} {stream : Stream} {token : String}
    (h : db.streams = [⟨stream, false, token⟩]) :
    ¬ db.DeleteHeld ⟨stream.id, stream.createdAt, token⟩ := by
  intro hheld
  have hrow := hheld ⟨stream, false, token⟩ (by rw [h]; exact mem_singleton_self _) rfl
  cases hrow.2

/-- Two accepted deletes that are lost: in one the stream stays enabled, in the other it is disabled
but no longer pending. -/
theorem accepted_delete_lost :
    (∃ s, replay DeleteSystem.step (.start deletedDb fun _ => deletedDb) lostDeleteOps = some s ∧
      s.deletes = [⟨1, deletedIdentity, .ended .accepted⟩] ∧ s.inFlight = [] ∧
      s.db.streams = [⟨deletedStream, false, "t"⟩] ∧ ¬ s.db.DeleteHeld deletedIdentity) ∧
    ∃ s, replay DeleteSystem.step (.start deletedDb fun _ => deletedDb) unmarkedDeleteOps = some s ∧
      s.deletes = [⟨1, deletedIdentity, .ended .accepted⟩] ∧ s.inFlight = [] ∧
      s.db.streams = [⟨{ deletedStream with enabled := false }, false, "t"⟩] ∧
      ¬ s.db.DeleteHeld deletedIdentity := by
  have hlost : ((replay DeleteSystem.step (.start deletedDb fun _ => deletedDb)
      lostDeleteOps).map fun s => (s.deletes, s.inFlight, s.db.streams)) =
        some ([⟨1, deletedIdentity, .ended .accepted⟩], [], [⟨deletedStream, false, "t"⟩]) := by
    decide +kernel
  have hunmarked : ((replay DeleteSystem.step (.start deletedDb fun _ => deletedDb)
      unmarkedDeleteOps).map fun s => (s.deletes, s.inFlight, s.db.streams)) =
        some ([⟨1, deletedIdentity, .ended .accepted⟩], [],
          [⟨{ deletedStream with enabled := false }, false, "t"⟩]) := by
    decide +kernel
  constructor
  · obtain ⟨s, hs, heq⟩ := map_eq_some_iff.1 hlost
    simp only [Prod.mk.injEq] at heq
    exact ⟨s, hs, heq.1, heq.2.1, heq.2.2, not_deleteHeld_singleton heq.2.2⟩
  · obtain ⟨s, hs, heq⟩ := map_eq_some_iff.1 hunmarked
    simp only [Prod.mk.injEq] at heq
    exact ⟨s, hs, heq.1, heq.2.1, heq.2.2, not_deleteHeld_singleton heq.2.2⟩

/-- The begin-delete is lost but takes effect; no finalize succeeds, and the fallback finds the row
disabled and pending. -/
def keptDeleteOps : List DeleteOp :=
  [DeleteOp.request 1 true "s" false, .call 0 .lost, .commit 0, .replicate 1] ++
    sixRounds .failed ++
    [DeleteOp.call 0 .failed, .read 0 false, .read 0 false, .read 0 false]

theorem accepted_delete_held_kept :
    ∃ s, replay DeleteSystem.step (.start deletedDb fun _ => deletedDb) keptDeleteOps = some s ∧
      s.deletes = [⟨1, deletedIdentity, .ended .accepted⟩] ∧
      along DeleteSystem.step (DeleteSystem.orderly 0 "s") keptDeleteOps
        (.start deletedDb fun _ => deletedDb) = true ∧
      s.db.DeleteHeld deletedIdentity := by
  have hkept : ((replay DeleteSystem.step (.start deletedDb fun _ => deletedDb)
      keptDeleteOps).map (·.deletes)) = some [⟨1, deletedIdentity, .ended .accepted⟩] := by
    decide +kernel
  have horderly : along DeleteSystem.step (DeleteSystem.orderly 0 "s") keptDeleteOps
      (.start deletedDb fun _ => deletedDb) = true := by decide +kernel
  have hwrites : ((DeleteSystem.start deletedDb fun _ => deletedDb).rowWrites deletedIdentity
      keptDeleteOps) = [.beginDeleteStream "s" (some 7) (some "t")] := by decide +kernel
  obtain ⟨s, hs, hdeletes⟩ := map_eq_some_iff.1 hkept
  refine ⟨s, hs, hdeletes, horderly, ?_⟩
  have hiff := (accepted_delete_held_iff deletedDb_schemaOk hs (i := 0) (by rw [hdeletes]; rfl)
    rfl).2 horderly
  refine hiff.2 (.inr ⟨.beginDeleteStream "s" (some 7) (some "t"), ?_, rfl⟩)
  rw [hwrites]
  exact mem_singleton_self _

end RtmpServer
